import SymbolRename.Proofs.Run.Unmingled

/-!
# What becomes of backups

At the end of a run the backup of a changed file holds the bytes that the file had when the run came
to it, unless something has been written over it since.  That can only be the file itself, where the
suffix leads back to it, or the file or the backup of an entry further down the list.  Neither can
happen if the suffix has no slash and no entry leads to the backup of another one.
-/

namespace SymbolRename

namespace Disk

/-- What the file held when the run came to it stands under the path that the outcome gives. -/
def Faithful (disk final : Disk) (settings : RunSettings) (earlier : List FileOutcome)
    (outcome : FileOutcome) : Prop :=
  ∃ saved raw, outcome.backupPath? = some saved ∧
    (disk.reached settings (earlier.map FileOutcome.path)).readBytes
      (settings.absPath outcome.path) = .ok raw ∧
    final.readBytes saved = .ok raw

/-- What may be written over the backup of an entry. -/
inductive Overwritten (disk : Disk) (settings : RunSettings) (path : String)
    (later : List FileOutcome) : Prop where
  | itself (hplace : disk.place? (settings.absPath path) = disk.place? (settings.savedPath path))
  | file {other : FileOutcome} (hother : other ∈ later) (hchanged : other.status = .changed)
      (hplace : disk.place? (settings.absPath other.path) =
        disk.place? (settings.savedPath path))
  | backup {other : FileOutcome} (hother : other ∈ later) (hchanged : other.status = .changed)
      (hplace : disk.place? (settings.savedPath other.path) =
        disk.place? (settings.savedPath path))

variable {disk : Disk} {settings : RunSettings} {path : String} {files : List String}

/-- A run leaves a place alone, unless it is where the file or the backup of a changed entry is. -/
theorem node?_reached_or_written (disk : Disk) (settings : RunSettings) (files : List String)
    (location : Location) :
    (disk.reached settings files).tree.node? location = disk.tree.node? location ∨
      ∃ other ∈ disk.runOutcomes settings files, other.status = .changed ∧
        (disk.place? (settings.absPath other.path) = some location ∨
          disk.place? (settings.savedPath other.path) = some location) := by
  by_cases hwritten : location ∈ (disk.runMutations settings files).map Mutation.location
  · right
    obtain ⟨mutation, hmutation, rfl⟩ := List.mem_map.mp hwritten
    obtain ⟨before, path, after, hfiles, hmutation⟩ := exists_entry_of_mem_runMutations hmutation
    have hsame := disk.sameDirectories_reached settings before
    have heffect := (disk.reached settings before).entryEffect_self settings path
    refine ⟨_, entryOutcome_mem_runOutcomes hfiles, ?_⟩
    by_cases hstatus : ((disk.reached settings before).entryOutcome settings path).status = .changed
    · obtain ⟨there, backup, raw, decoded, hchanges, hmutations, _⟩ := heffect.changes hstatus
      obtain ⟨hfile, hbackup⟩ := hchanges.place?_eq hsame
      rw [heffect.path_eq]
      simp only [hmutations, List.mem_cons, List.not_mem_nil, or_false] at hmutation
      rcases hmutation with rfl | rfl
      · exact ⟨hstatus, Or.inr hbackup⟩
      · exact ⟨hstatus, Or.inl hfile⟩
    · simp [heffect.mutations_eq_nil hstatus] at hmutation
  · exact Or.inl (FileTree.node?_applyAll_of_notMem hwritten)

/-- Files with the same backup are the same file. -/
theorem Changes.location_eq {disk' : Disk} {path' : String} {location there backup : Location}
    {raw raw' : Bytes} {decoded decoded' : Decoded} (hplain : PlainSuffix settings.backupSuffix)
    (h : disk.Changes settings path location backup raw decoded)
    (h' : disk'.Changes settings path' there backup raw' decoded') : location = there := by
  obtain ⟨directory, name, _, rfl, _, hbackup⟩ :=
    backup_eq_of_writeTarget hplain (writeTarget_of_lookup h.lookup) h.target
  obtain ⟨directory', name', _, rfl, _, hbackup'⟩ :=
    backup_eq_of_writeTarget hplain (writeTarget_of_lookup h'.lookup) h'.target
  obtain ⟨rfl, hname⟩ := List.append_inj' (hbackup.symm.trans hbackup') rfl
  rw [append_right_cancel (List.singleton_inj.mp hname)]

/-- A file with a renamed text is not changed any more, whatever entries a run goes through. -/
theorem Changes.location_ne_of_renamed {entries : List String} {location there backup : Location}
    {raw : Bytes} {decoded decoded' : Decoded} (hplain : PlainSuffix settings.backupSuffix)
    (hunmingled : disk.Unmingled settings.root settings.backupSuffix files)
    (hentries : entries ⊆ files) (hpath : path ∈ files)
    (hnode : disk.tree.node? location = some (.file (Utf8.encode decoded.renamed)))
    (h : (disk.reached settings entries).Changes settings path there backup raw decoded') :
    location ≠ there := by
  have hprogress := progress_reached hplain hunmingled hentries
  have hchanged :=
    List.Subset.trans (disk.changedPaths_runOutcomes_subset settings entries) hentries
  have hstart := hprogress.changes_start hplain hunmingled hchanged hpath h
  obtain ⟨_, _, _, _, hthere⟩ := lookup_eq_file_iff.mp hstart.lookup
  rintro rfl
  cases hnode.symm.trans hthere
  exact Decoded.encode_renamed_ne hstart.decode hstart.differs decoded rfl

section Outcome

variable {earlier later : List FileOutcome} {outcome : FileOutcome}
  (hsplit : disk.runOutcomes settings files = earlier ++ outcome :: later)
  (hstatus : outcome.status = .changed)

include hsplit hstatus

theorem exists_changes_of_split :
    ∃ location backup raw decoded,
      (disk.reached settings (earlier.map FileOutcome.path)).Changes settings outcome.path location
          backup raw decoded ∧
        outcome.backupPath? = some (settings.savedPath outcome.path) ∧
        disk.reached settings (earlier.map FileOutcome.path ++ [outcome.path]) =
          (disk.reached settings (earlier.map FileOutcome.path)).applyAll
            [.write backup raw, .write location (Utf8.encode decoded.renamed)] := by
  obtain ⟨_, houtcome, _⟩ := runOutcomes_eq_append hsplit
  have heffect := (disk.reached settings (earlier.map FileOutcome.path)).entryEffect_self settings
    outcome.path
  rw [← houtcome] at heffect
  obtain ⟨location, backup, raw, decoded, hchanges, hmutations, hbackup⟩ := heffect.changes hstatus
  rw [reached_concat, hmutations]
  exact ⟨location, backup, raw, decoded, hchanges, hbackup, rfl⟩

theorem faithful_or_overwritten :
    disk.Faithful (disk.reached settings files) settings earlier outcome ∨
      disk.Overwritten settings outcome.path later := by
  obtain ⟨hfiles, _, hlater⟩ := runOutcomes_eq_append hsplit
  obtain ⟨location, backup, raw, decoded, hchanges, hsaved, hreached⟩ :=
    exists_changes_of_split hsplit hstatus
  have hsame := disk.sameDirectories_reached settings (earlier.map FileOutcome.path)
  obtain ⟨hfile, hbackup⟩ := hchanges.place?_eq hsame
  by_cases hne : location = backup
  · right
    apply Overwritten.itself
    rw [hfile, hbackup, hne]
  have hnode := hchanges.node?_backup_after hne
  rw [← hreached] at hnode
  have hsame' := disk.sameDirectories_reached settings
    (earlier.map FileOutcome.path ++ [outcome.path])
  rcases node?_reached_or_written (disk.reached settings (earlier.map FileOutcome.path ++
      [outcome.path])) settings (later.map FileOutcome.path) backup with hkept | hwritten
  · left
    rw [hnode, ← reached_append, List.append_assoc, List.singleton_append, ← hfiles] at hkept
    have htarget := writeTarget_of_same hsame.symm hchanges.target
    have hlookup := lookup_of_same (disk.sameDirectories_reached settings files) htarget hkept
    exact ⟨_, raw, hsaved, readBytes_of_lookup hchanges.lookup, readBytes_of_lookup hlookup⟩
  · right
    obtain ⟨other, hother, hchanged, hthere⟩ := hwritten
    rw [← hlater] at hother
    rw [hsame'.place?_eq, hsame'.place?_eq, ← hbackup] at hthere
    rcases hthere with hthere | hthere
    · exact .file hother hchanged hthere
    · exact .backup hother hchanged hthere

theorem backup_ne_of_later (hplain : PlainSuffix settings.backupSuffix)
    (hunmingled : disk.Unmingled settings.root settings.backupSuffix files)
    {other : FileOutcome} (hother : other ∈ later) (hchanged : other.status = .changed) :
    disk.place? (settings.savedPath other.path) ≠
      disk.place? (settings.savedPath outcome.path) := by
  obtain ⟨hfiles, _, hlater⟩ := runOutcomes_eq_append hsplit
  obtain ⟨location, backup, raw, decoded, hchanges, _, hreached⟩ :=
    exists_changes_of_split hsplit hstatus
  obtain ⟨between, rest, rfl⟩ := List.append_of_mem hother
  obtain ⟨there, backup', raw', decoded', hchanges', _⟩ :=
    exists_changes_of_split hlater.symm hchanged
  have hsame := disk.sameDirectories_reached settings
    (earlier.map FileOutcome.path ++ [outcome.path])
  have hentries : between.map FileOutcome.path ⊆ files := by
    intro path hpath
    rw [hfiles, List.map_append]
    simp [hpath]
  have hpath : other.path ∈ files := by
    rw [hfiles, List.map_append]
    simp
  -- with the same backup the later entry has the same file, which is renamed by then
  obtain ⟨_, _, _, _, hnode⟩ := lookup_eq_file_iff.mp hchanges.lookup_after
  rw [← hreached] at hnode
  have hne := hchanges'.location_ne_of_renamed hplain (hunmingled.same hsame) hentries hpath hnode
  obtain ⟨_, hbackup⟩ := hchanges.place?_eq (disk.sameDirectories_reached settings _)
  obtain ⟨_, hbackup'⟩ := hchanges'.place?_eq
    (hsame.trans (sameDirectories_reached _ settings (between.map FileOutcome.path)))
  intro hplace
  rw [hbackup, hbackup'] at hplace
  cases hplace
  exact hne (hchanges.location_eq hplain hchanges')

theorem not_overwritten (hplain : PlainSuffix settings.backupSuffix)
    (hunmingled : disk.Unmingled settings.root settings.backupSuffix files) :
    ¬disk.Overwritten settings outcome.path later := by
  obtain ⟨hfiles, _, _⟩ := runOutcomes_eq_append hsplit
  obtain ⟨location, backup, raw, decoded, hchanges, _, _⟩ := exists_changes_of_split hsplit hstatus
  have hsame := disk.sameDirectories_reached settings (earlier.map FileOutcome.path)
  obtain ⟨hfile, hbackup⟩ := hchanges.place?_eq hsame
  intro h
  cases h with
  | itself hplace =>
      rw [hfile, hbackup] at hplace
      exact hchanges.location_ne hplain (Option.some.inj hplace)
  | @file other hother hchanged hplace =>
      rw [hbackup, ← hsame.place?_eq] at hplace
      have hmem : other.path ∈ files := by
        rw [hfiles]
        simp [List.mem_map_of_mem hother]
      exact (hunmingled.same hsame).ne_backup hplain hmem hplace (by simp [hfiles]) hchanges rfl
  | backup hother hchanged hplace =>
      exact backup_ne_of_later hsplit hstatus hplain hunmingled hother hchanged hplace

end Outcome

/-- At the end of a run every backup holds what its file held when the run came to it, unless it has
been written over, and that does not happen to entries that are unmingled. -/
theorem backups_faithful_unless_overwritten (disk : Disk) (settings : RunSettings)
    (tool : ToolInfo) (clock : Clock) (hfiles : settings.files ≠ [])
    (hsuffix : settings.backupSuffix ≠ "") :
    ∃ result, disk.run settings tool clock = .ok result ∧
      result.report.files.map FileOutcome.path = settings.files ∧
      ∀ earlier outcome later, result.report.files = earlier ++ outcome :: later →
        outcome.status = .changed →
          (disk.Faithful (disk.applyAll result.mutations) settings earlier outcome ∨
            disk.Overwritten settings outcome.path later) ∧
          ('/' ∉ settings.backupSuffix.toList →
            disk.Unmingled settings.root settings.backupSuffix settings.files →
            disk.Faithful (disk.applyAll result.mutations) settings earlier outcome) := by
  obtain ⟨result, hrun, hreport, hmutations⟩ := @run_eq_ok disk settings tool clock hfiles hsuffix
  refine ⟨result, hrun, by rw [hreport, map_path_runOutcomes], ?_⟩
  intro earlier outcome later hsplit hstatus
  rw [hreport] at hsplit
  rw [hmutations]
  have hcases := faithful_or_overwritten hsplit hstatus
  refine ⟨hcases, fun hslash hunmingled ↦ ?_⟩
  exact hcases.resolve_right (not_overwritten hsplit hstatus ⟨hsuffix, hslash⟩ hunmingled)

theorem backups_faithful_on_mixedDisk :
    ∃ result, mixedDisk.run mixedSettings ⟨"nsprefix", none⟩
        ⟨⟨2024, 5, 1, 12, 0, 0, 0⟩, ⟨2024, 5, 1, 12, 0, 1, 0⟩⟩ = .ok result ∧
      ∀ earlier outcome later, result.report.files = earlier ++ outcome :: later →
        outcome.status = .changed →
          mixedDisk.Faithful (mixedDisk.applyAll result.mutations) mixedSettings earlier
            outcome := by
  obtain ⟨result, hrun, _, hchanged⟩ := backups_faithful_unless_overwritten mixedDisk mixedSettings
    ⟨"nsprefix", none⟩ ⟨⟨2024, 5, 1, 12, 0, 0, 0⟩, ⟨2024, 5, 1, 12, 0, 1, 0⟩⟩ (by decide)
    (by decide)
  refine ⟨result, hrun, fun earlier outcome later hsplit hstatus ↦ ?_⟩
  exact (hchanged earlier outcome later hsplit hstatus).2 (by decide) (by decide +kernel)

/-! ## Backups that are listed -/

/-- A backup that is listed after its file is renamed as well. -/
theorem backup_renamed_of_listed {other : String} {location backup backup' : Location}
    {raw : Bytes} {decoded : Decoded} (hfiles : settings.files = [path, other])
    (hother : settings.absPath other = settings.savedPath path) (hwrite : settings.dryRun = false)
    (hsuffix : settings.backupSuffix ≠ "")
    (hchanges : disk.Changes settings path location backup raw decoded) (hne : location ≠ backup)
    (htarget : disk.writeTarget (settings.savedPath other) = .ok backup')
    (tool : ToolInfo) (clock : Clock) :
    ∃ result first second, disk.run settings tool clock = .ok result ∧
      result.report.files = [first, second] ∧ first.status = .changed ∧
      first.backupPath? = some (settings.savedPath path) ∧
      (disk.applyAll result.mutations).readBytes (settings.savedPath path) =
        .ok (Utf8.encode decoded.renamed) := by
  have hfirst := EntryEffect.changed hchanges.toLoads hchanges.differs hwrite hchanges.target
  obtain ⟨houtcome, hmutations⟩ := hfirst.eq_self
  have hsame := sameDirectories_applyAll hfirst.fileMutation
  -- the second entry finds the bytes that the first one has just saved
  have hlookup := lookup_of_same hsame hchanges.target (hchanges.node?_backup_after hne)
  rw [← hother] at hlookup
  have hchanges' : Changes _ settings other backup backup' raw decoded :=
    ⟨⟨hlookup, hchanges.decode⟩, hchanges.differs, writeTarget_of_same hsame htarget⟩
  obtain ⟨_, hmutations'⟩ := (EntryEffect.changed hchanges'.toLoads hchanges'.differs hwrite
    hchanges'.target).eq_self
  have hread := readBytes_of_lookup hchanges'.lookup_after
  obtain ⟨result, hrun, hreport, hwrites⟩ :=
    @run_eq_ok disk settings tool clock (by simp [hfiles]) hsuffix
  have hfinal : disk.applyAll result.mutations = disk.reached settings [path, other] := by
    rw [hwrites, hfiles, reached]
  rw [hfiles, runOutcomes_cons, runOutcomes_cons, runOutcomes_nil] at hreport
  refine ⟨result, _, _, hrun, hreport, ?_, ?_, ?_⟩
  · rw [houtcome]
  · rw [houtcome]
  · rw [hfinal, reached_cons, reached_cons, reached_nil, hmutations, hmutations', ← hother, hread]

def mingledDisk : Disk :=
  ⟨FileTree.empty.applyAll [.write ["a.h"] (Utf8.encode "ma_x".toList)], []⟩

def mingledSettings : RunSettings := ⟨".", ["a.h", "a.h.backup"], .strict, ".backup", false⟩

theorem backup_renamed_on_mingledDisk :
    ∃ result first second, mingledDisk.run mingledSettings ⟨"nsprefix", none⟩
        ⟨⟨2024, 5, 1, 12, 0, 0, 0⟩, ⟨2024, 5, 1, 12, 0, 1, 0⟩⟩ = .ok result ∧
      result.report.files = [first, second] ∧ first.status = .changed ∧
      first.backupPath? = some "./a.h.backup" ∧
      mingledDisk.readBytes "./a.h" = .ok (Utf8.encode "ma_x".toList) ∧
      (mingledDisk.applyAll result.mutations).readBytes "./a.h.backup" =
        .ok (Utf8.encode "soloud_ma_x".toList) := by
  have hchanges : mingledDisk.Changes mingledSettings "a.h" ["a.h"] ["a.h.backup"]
      (Utf8.encode "ma_x".toList) ⟨"ma_x", false⟩ := by
    refine ⟨⟨?_, decodeBytes_encode .strict "ma_x".toList⟩, ?_, ?_⟩ <;> decide +kernel
  have htarget : mingledDisk.writeTarget (mingledSettings.savedPath "a.h.backup") =
      .ok ["a.h.backup.backup"] := by
    decide +kernel
  have hrenamed : Decoded.renamed ⟨"ma_x", false⟩ = "soloud_ma_x".toList := by decide +kernel
  obtain ⟨result, first, second, hrun, hreport, hstatus, hsaved, hread⟩ :=
    backup_renamed_of_listed rfl (by decide +kernel) rfl (by decide) hchanges (by decide) htarget
      ⟨"nsprefix", none⟩ ⟨⟨2024, 5, 1, 12, 0, 0, 0⟩, ⟨2024, 5, 1, 12, 0, 1, 0⟩⟩
  rw [hrenamed] at hread
  exact ⟨result, first, second, hrun, hreport, hstatus, hsaved,
    readBytes_of_lookup hchanges.lookup, hread⟩

end Disk
end SymbolRename
