import SymbolRename.Proofs.Disk.Changes

/-!
# Paths with a suffix

A suffix without a slash makes the last name of a path longer and leaves the way to it as it is.  So
the backup of a file stands beside the file, under another name, and files in different places have
their backups in different places.
-/

namespace SymbolRename

/-! ## Parts of a path with a suffix -/

theorem splitSlashes_of_notMem {text : List Char} (h : '/' ∉ text) :
    splitSlashes text = [text] := by
  induction text with
  | nil => rfl
  | cons c text ih =>
      obtain ⟨hc, htext⟩ : '/' ≠ c ∧ '/' ∉ text := by simpa using h
      rw [splitSlashes, if_neg (Ne.symm hc), ih htext]

theorem splitSlashes_append_slash (front text : List Char) :
    splitSlashes (front ++ '/' :: text) = splitSlashes front ++ splitSlashes text := by
  induction front with
  | nil => simp [splitSlashes]
  | cons c front ih =>
      by_cases hc : c = '/'
      · simp [splitSlashes, hc, ih]
      · rw [List.cons_append, splitSlashes, splitSlashes, if_neg hc, if_neg hc, ih]
        cases hparts : splitSlashes front with
        | nil => exact absurd hparts (splitSlashes_ne_nil front)
        | cons part parts => simp

theorem exists_cut_at_last_slash (text : List Char) :
    ∃ last, '/' ∉ last ∧ (text = last ∨ ∃ front, text = front ++ '/' :: last) := by
  induction text with
  | nil => exact ⟨[], by simp, Or.inl rfl⟩
  | cons c text ih =>
      obtain ⟨last, hlast, rfl | ⟨front, rfl⟩⟩ := ih
      · by_cases hc : c = '/'
        · exact ⟨text, hlast, Or.inr ⟨[], by simp [hc]⟩⟩
        · exact ⟨c :: text, by simpa [Ne.symm hc] using hlast, Or.inl rfl⟩
      · exact ⟨last, hlast, Or.inr ⟨c :: front, rfl⟩⟩

theorem getLast?_ne_slash {text : List Char} (h : '/' ∉ text) : text.getLast? ≠ some '/' :=
  fun hlast ↦ h (List.mem_of_getLast? hlast)

theorem isAbsolute_append {path suffix : String} (h : '/' ∉ suffix.toList) :
    isAbsolute (path ++ suffix) = isAbsolute path := by
  rw [isAbsolute, isAbsolute, String.toList_append]
  cases path.toList with
  | nil =>
      have hhead : suffix.toList.head? ≠ some '/' := fun hhead ↦ h (List.mem_of_head? hhead)
      simp [hhead]
  | cons c text => simp

def namesIn (text : List Char) : List String :=
  ((splitSlashes text).filter fun part ↦ part != []).map String.ofList

theorem Route.ofPath_of_notMem {path : String} (h : '/' ∉ path.toList) (hne : path ≠ "") :
    Route.ofPath path = ⟨isAbsolute path, [path], false⟩ := by
  have htext : path.toList ≠ [] := by simpa using hne
  simp [Route.ofPath, splitSlashes_of_notMem h, getLast?_ne_slash h, htext]

theorem Route.ofPath_of_slash {path : String} {front last : List Char}
    (hpath : path.toList = front ++ '/' :: last) (h : '/' ∉ last) (hne : last ≠ []) :
    Route.ofPath path = ⟨isAbsolute path, namesIn front ++ [String.ofList last], false⟩ := by
  have hlast : ('/' :: last).getLast? = last.getLast? := List.getLast?_cons_of_ne_nil hne
  simp [Route.ofPath, namesIn, hpath, splitSlashes_append_slash, splitSlashes_of_notMem h, hne,
    List.getLast?_append, hlast, getLast?_ne_slash h]

theorem splitSlashes_replicate (n : Nat) :
    splitSlashes (List.replicate n '/') = List.replicate (n + 1) [] := by
  induction n with
  | zero => rfl
  | succ n ih => rw [List.replicate_succ, splitSlashes, if_pos rfl, ih, ← List.replicate_succ]

/-- Slashes in a row count as one. -/
theorem namesIn_append_slashes (front : List Char) (n : Nat) :
    namesIn (front ++ List.replicate n '/') = namesIn front := by
  cases n with
  | zero => simp
  | succ n =>
      rw [List.replicate_succ, namesIn, splitSlashes_append_slash, splitSlashes_replicate,
        List.filter_append, List.filter_replicate]
      simp [namesIn]

/-- The parts of a path above its last one, which may be empty. -/
structure LastPart (path : String) (above : List String) (last : String) : Prop where
  /-- A suffix without slashes is added to the last part. -/
  suffixed : ∀ suffix, suffix ≠ "" → '/' ∉ suffix.toList →
    Route.ofPath (path ++ suffix) = ⟨isAbsolute path, above ++ [last ++ suffix], false⟩
  plain : last ≠ "" → Route.ofPath path = ⟨isAbsolute path, above ++ [last], false⟩
  slash : last = "" → path = "" ∨ Route.ofPath path = ⟨isAbsolute path, above, true⟩

theorem exists_lastPart (path : String) : ∃ above last, LastPart path above last := by
  obtain ⟨last, hlast, htext | ⟨front, htext⟩⟩ := exists_cut_at_last_slash path.toList
  · -- without a slash the path is its own last part
    refine ⟨[], path, ?_, ?_, Or.inl⟩
    · intro suffix hne hslash
      have hboth : '/' ∉ (path ++ suffix).toList := by simp [htext, hlast, hslash]
      rw [Route.ofPath_of_notMem hboth (by simp [hne]), isAbsolute_append hslash]
      rfl
    · intro hne
      exact Route.ofPath_of_notMem (htext ▸ hlast) hne
  · refine ⟨namesIn front, String.ofList last, ?_, ?_, ?_⟩
    · intro suffix hne hslash
      have hpath : (path ++ suffix).toList = front ++ '/' :: (last ++ suffix.toList) := by
        simp [htext]
      rw [Route.ofPath_of_slash hpath (by simp [hlast, hslash]) (by simp [hne]),
        isAbsolute_append hslash, String.ofList_append, String.ofList_toList]
    · intro hne
      exact Route.ofPath_of_slash htext hlast (by simpa using hne)
    · intro hempty
      have hnil : last = [] := by simpa using hempty
      exact Or.inr (by simp [Route.ofPath, namesIn, htext, hnil, splitSlashes_append_slash,
        splitSlashes])

namespace Disk

theorem byteLength_append (text suffix : String) :
    byteLength (text ++ suffix) = byteLength text + byteLength suffix := by
  simp [byteLength, Utf8.encode]

/-! ## Names with a suffix -/

theorem route_eq_ok_iff {path : String} {r : Route} :
    route path = .ok r ↔ '\x00' ∉ path.toList ∧ path ≠ "" ∧ byteLength path ≤ maxPathLength ∧
      r = Route.ofPath path := by
  rw [route, bind_eq_ok_iff]
  constructor
  · rintro ⟨plain, hplain, hlength⟩
    rw [plainRoute] at hplain
    split at hplain
    · cases hplain
    · next hnul =>
      split at hplain
      · cases hplain
      · next hempty =>
        cases hplain
        split at hlength
        · cases hlength
        · next hle =>
          cases hlength
          exact ⟨by simpa using hnul, by simpa using hempty, Nat.not_lt.mp hle, rfl⟩
  · rintro ⟨hnul, hempty, hlength, rfl⟩
    refine ⟨Route.ofPath path, ?_, if_neg (Nat.not_lt.mpr hlength)⟩
    simp [plainRoute, hnul, hempty]

theorem names_iff_of_lastPart {disk : Disk} {path last name : String} {above : List String}
    {directory : Location} (hlast : LastPart path above last) :
    disk.Names path directory name ↔
      ('\x00' ∉ path.toList ∧ byteLength path ≤ maxPathLength ∧ last ≠ "") ∧ name = last ∧
        name ≠ "." ∧ name ≠ ".." ∧ byteLength name ≤ maxNameLength ∧
        disk.walk (if isAbsolute path then [] else disk.cwd) above = .ok directory := by
  constructor
  · rintro ⟨⟨r, hroute, hslash, happroach⟩, hlength⟩
    obtain ⟨hnul, hempty, hpath, rfl⟩ := route_eq_ok_iff.mp hroute
    have hne : last ≠ "" := by
      intro h
      rcases hlast.slash h with h | h
      · exact hempty h
      · simp [h] at hslash
    obtain ⟨hwalk, hname, hdot, hup⟩ := approach_eq_named_iff.mp happroach
    rw [hlast.plain hne] at hwalk hname
    simp only [List.dropLast_concat, List.getLast?_concat, Option.some.injEq] at hwalk hname
    exact ⟨⟨hnul, hpath, hne⟩, hname.symm, hdot, hup, hlength, hwalk⟩
  · rintro ⟨⟨hnul, hpath, hne⟩, rfl, hdot, hup, hlength, hwalk⟩
    have hroute := hlast.plain hne
    have hempty : path ≠ "" := by
      rintro rfl
      simp [Route.ofPath, splitSlashes] at hroute
    refine ⟨⟨_, route_eq_ok_iff.mpr ⟨hnul, hempty, hpath, rfl⟩, by rw [hroute], ?_⟩, hlength⟩
    rw [hroute]
    exact approach_eq_named_iff.mpr ⟨by simpa [origin] using hwalk, by simp, hdot, hup⟩

theorem exists_approach {disk : Disk} {r : Route} {here : Location}
    (h : disk.walk (disk.origin r) r.steps.dropLast = .ok here) :
    ∃ ending, disk.approach r = .ok ending := by
  rw [origin] at h
  simp only [approach, h, bind, Except.bind]
  split
  · exact ⟨_, rfl⟩
  · split
    · exact ⟨_, rfl⟩
    · split <;> exact ⟨_, rfl⟩

theorem exists_walk_dropLast {disk : Disk} {start there : Location} {steps : List String}
    (h : disk.walk start steps = .ok there) :
    ∃ here, disk.walk start steps.dropLast = .ok here := by
  rcases List.eq_nil_or_concat steps with rfl | ⟨front, step, rfl⟩
  · exact ⟨start, rfl⟩
  · rw [walk, List.concat_eq_append, List.foldlM_append, bind_eq_ok_iff] at h
    obtain ⟨here, hfront, _⟩ := h
    exact ⟨here, by simpa [walk] using hfront⟩

/-- Once the way to its end can be walked, only directories decide whether a path can be written. -/
theorem writeTarget_eq_of_approach {disk other : Disk} {path : String} {r : Route}
    {ending : Ending} (hroute : route path = .ok r) (happroach : disk.approach r = .ok ending)
    (hsame : disk.SameDirectories other) : other.writeTarget path = disk.writeTarget path := by
  have happroach' := hsame.approach.mpr happroach
  simp only [writeTarget, hroute, bind, Except.bind, happroach, happroach']
  cases ending with
  | here location => rfl
  | named directory name =>
      simp only
      split
      · rfl
      · cases hchild : child directory name with
        | error e => rfl
        | ok there =>
            by_cases hnode : disk.tree.node? there = some .directory
            · simp only [hnode, (hsame.directory there).mpr hnode]
            · have hnode' := fun h ↦ hnode ((hsame.directory there).mp h)
              simp only

theorem append_ne_dots {name suffix : String} (hname : name ≠ "") (hdot : name ≠ ".")
    (hsuffix : suffix ≠ "") : name ++ suffix ≠ "." ∧ name ++ suffix ≠ ".." := by
  simp only [ne_eq, ← String.toList_inj, String.toList_append, String.toList_empty] at *
  obtain ⟨c, cs, hname⟩ := List.exists_cons_of_ne_nil hname
  obtain ⟨d, ds, hsuffix⟩ := List.exists_cons_of_ne_nil hsuffix
  rw [hname] at hdot ⊢
  rw [hsuffix]
  constructor
  · intro h
    have hlength := congrArg List.length h
    simp at hlength
  · intro h
    cases cs with
    | nil =>
        obtain ⟨rfl, _⟩ : c = '.' ∧ _ := by simpa using h
        exact hdot rfl
    | cons e cs =>
        have hlength := congrArg List.length h
        simp at hlength

theorem append_right_cancel {name other suffix : String} (h : name ++ suffix = other ++ suffix) :
    name = other := by
  simp only [← String.toList_inj, String.toList_append] at h ⊢
  exact List.append_cancel_right h

/-- A suffix that only makes names longer. -/
structure PlainSuffix (suffix : String) : Prop where
  nonempty : suffix ≠ ""
  slashless : '/' ∉ suffix.toList

section Suffixed

variable {disk other : Disk} {path suffix name : String} {directory : Location}

theorem Names.name_ne_empty (h : disk.Names path directory name) : name ≠ "" := by
  obtain ⟨above, last, hlast⟩ := exists_lastPart path
  obtain ⟨⟨_, _, hne⟩, rfl, _⟩ := (names_iff_of_lastPart hlast).mp h
  exact hne

theorem Names.name_ne_dots (h : disk.Names path directory name) : name ≠ "." ∧ name ≠ ".." := by
  obtain ⟨⟨r, _, _, happroach⟩, _⟩ := h
  obtain ⟨_, _, hdot, hup⟩ := approach_eq_named_iff.mp happroach
  exact ⟨hdot, hup⟩

theorem Names.approach_suffix (h : disk.Names path directory name) (hplain : PlainSuffix suffix) :
    disk.approach (Route.ofPath (path ++ suffix)) = .ok (.named directory (name ++ suffix)) := by
  obtain ⟨above, last, hlast⟩ := exists_lastPart path
  obtain ⟨⟨_, _, hne⟩, rfl, hdot, _, _, hwalk⟩ := (names_iff_of_lastPart hlast).mp h
  rw [hlast.suffixed suffix hplain.nonempty hplain.slashless]
  obtain ⟨hdot', hup'⟩ := append_ne_dots hne hdot hplain.nonempty
  exact approach_eq_named_iff.mpr ⟨by simpa [origin] using hwalk, by simp, hdot', hup'⟩

/-- A name stays one with a suffix unless the suffix makes the path or the name too long. -/
theorem Names.append_suffix (h : disk.Names path directory name) (hplain : PlainSuffix suffix)
    (hnul : '\x00' ∉ suffix.toList) (hpath : byteLength (path ++ suffix) ≤ maxPathLength)
    (hname : byteLength (name ++ suffix) ≤ maxNameLength) :
    disk.Names (path ++ suffix) directory (name ++ suffix) := by
  obtain ⟨above, last, hlast⟩ := exists_lastPart path
  obtain ⟨⟨hnul', _, _⟩, _⟩ := (names_iff_of_lastPart hlast).mp h
  have hroute : route (path ++ suffix) = .ok (Route.ofPath (path ++ suffix)) :=
    route_eq_ok_iff.mpr ⟨by simp [hnul, hnul'], by simp [hplain.nonempty], hpath, rfl⟩
  refine ⟨⟨_, hroute, ?_, h.approach_suffix hplain⟩, hname⟩
  rw [hlast.suffixed suffix hplain.nonempty hplain.slashless]

theorem Names.writeTarget_suffix {location : Location} (h : disk.Names path directory name)
    (hplain : PlainSuffix suffix) (htarget : disk.writeTarget (path ++ suffix) = .ok location) :
    location = directory ++ [name ++ suffix] := by
  obtain ⟨there, full, ⟨⟨r, hroute, _, happroach⟩, _⟩, rfl, _⟩ := writeTarget_eq_ok_iff.mp htarget
  obtain ⟨_, _, _, rfl⟩ := route_eq_ok_iff.mp hroute
  cases (h.approach_suffix hplain).symm.trans happroach
  rfl

/-- Whether a name with a suffix can be written depends on the directories only. -/
theorem Names.writeTarget_suffix_same (h : disk.Names path directory name)
    (hsame : disk.SameDirectories other) (hplain : PlainSuffix suffix) :
    other.writeTarget (path ++ suffix) = disk.writeTarget (path ++ suffix) := by
  cases hroute : route (path ++ suffix) with
  | error e => simp only [writeTarget, hroute, bind, Except.bind]
  | ok r =>
      obtain ⟨_, _, _, rfl⟩ := route_eq_ok_iff.mp hroute
      exact writeTarget_eq_of_approach hroute (h.approach_suffix hplain) hsame

/-- So does whether the path without the suffix can be written, once the way to the name with the
suffix is there. -/
theorem Names.writeTarget_stem_same (h : disk.Names (path ++ suffix) directory name)
    (hsame : disk.SameDirectories other) (hplain : PlainSuffix suffix) :
    other.writeTarget path = disk.writeTarget path := by
  obtain ⟨above, last, hlast⟩ := exists_lastPart path
  obtain ⟨⟨r, hroute, _, happroach⟩, _⟩ := h
  obtain ⟨_, _, _, rfl⟩ := route_eq_ok_iff.mp hroute
  obtain ⟨hwalk, _, _, _⟩ := approach_eq_named_iff.mp happroach
  rw [hlast.suffixed suffix hplain.nonempty hplain.slashless] at hwalk
  simp only [List.dropLast_concat, origin] at hwalk
  cases hstem : route path with
  | error e => simp only [writeTarget, hstem, bind, Except.bind]
  | ok r =>
      obtain ⟨_, hempty, _, rfl⟩ := route_eq_ok_iff.mp hstem
      have hending : ∃ ending, disk.approach (Route.ofPath path) = .ok ending := by
        by_cases hne : last = ""
        · -- the path ends with a slash, and the way behind it goes on from where the path leads
          rw [(hlast.slash hne).resolve_left hempty]
          obtain ⟨here, hfront⟩ := exists_walk_dropLast hwalk
          exact exists_approach hfront
        · rw [hlast.plain hne]
          exact exists_approach (by simpa [origin] using hwalk)
      obtain ⟨ending, hending⟩ := hending
      exact writeTarget_eq_of_approach hstem hending hsame

/-- Two names with the same suffix are told apart by the names. -/
theorem Names.of_suffix (hplain : PlainSuffix suffix)
    (h : disk.Names (path ++ suffix) directory (name ++ suffix)) (hname : name ≠ "")
    (hdot : name ≠ ".") (hup : name ≠ "..") : disk.Names path directory name := by
  obtain ⟨above, last, hlast⟩ := exists_lastPart path
  obtain ⟨⟨r, hroute, _, happroach⟩, hlength⟩ := h
  obtain ⟨hnul, _, hpath, rfl⟩ := route_eq_ok_iff.mp hroute
  obtain ⟨hwalk, hfull, _, _⟩ := approach_eq_named_iff.mp happroach
  rw [hlast.suffixed suffix hplain.nonempty hplain.slashless] at hwalk hfull
  simp only [List.dropLast_concat, List.getLast?_concat, Option.some.injEq] at hwalk hfull
  obtain rfl := append_right_cancel hfull
  rw [byteLength_append] at hpath hlength
  rw [String.toList_append, List.mem_append, not_or] at hnul
  exact (names_iff_of_lastPart hlast).mpr
    ⟨⟨hnul.1, by omega, hname⟩, rfl, hdot, hup, by omega, hwalk⟩

end Suffixed

end Disk
end SymbolRename
