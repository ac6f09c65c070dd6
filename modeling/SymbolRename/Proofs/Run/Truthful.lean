import SymbolRename.Proofs.Run.Repeat
import SymbolRename.Proofs.Text.Decoding

/-!
# Reports and the bytes on the disk

The digests and counts in a report are computed from texts in memory.  They are those of the bytes
on the disk all the same: an unchanged file still holds the bytes that were read, even where these
are no text and something else was in memory, and a changed file holds the bytes of a text that
decodes to itself.
-/

namespace SymbolRename

theorem decodeBytes_lenient_of_ok {policy : DecodePolicy} {raw : Bytes} {decoded : Decoded}
    (h : decodeBytes policy raw = .ok decoded) : decodeBytes .lenient raw = .ok decoded := by
  by_cases hvalid : Utf8.valid raw = true
  · simpa [decodeBytes, hvalid] using h
  · cases policy with
    | strict => simp [decodeBytes, hvalid] at h
    | lenient => exact h

theorem lossy_iff_of_decodeBytes {policy : DecodePolicy} {raw : Bytes} {decoded : Decoded}
    (h : decodeBytes policy raw = .ok decoded) :
    decoded.lossy = true ↔ ¬∃ text, Utf8.encode text = raw := by
  rw [← Utf8.valid_iff_exists_encode]
  have hlenient := decodeBytes_lenient_of_ok h
  by_cases hvalid : Utf8.valid raw = true
  · simp only [decodeBytes, hvalid, if_true] at hlenient
    cases hlenient
    simp [hvalid]
  · simp only [decodeBytes, hvalid] at hlenient
    cases hlenient
    simp [hvalid]

/-- What an outcome says of a file that held some bytes before the run and others after it. -/
structure FileOutcome.Describes (outcome : FileOutcome) (old new : Bytes) : Prop where
  sha256Before?_eq : outcome.sha256Before? = some (sha256 old)
  sha256After?_eq : outcome.sha256After? = some (sha256 new)
  counts?_eq : ∃ decoded, decodeBytes .lenient new = .ok decoded ∧
    outcome.counts? = some (countNamespaced decoded.text.toList)
  lossyDecode_iff : outcome.lossyDecode = true ↔ ¬∃ text, Utf8.encode text = old

namespace Disk

variable {disk : Disk} {settings : RunSettings} {path : String} {files : List String}

/-- What the report says of one entry is true of the disks before and after the run, and only what
belongs to its status is said. -/
structure Truthful (disk after : Disk) (settings : RunSettings) (path : String)
    (outcome : FileOutcome) : Prop where
  path_eq : outcome.path = path
  describes : outcome.status = .changed ∨ outcome.status = .unchanged →
    ∃ old new, disk.readBytes (settings.absPath path) = .ok old ∧
      after.readBytes (settings.absPath path) = .ok new ∧ outcome.Describes old new
  backupPath?_isSome_iff : outcome.backupPath?.isSome = true ↔ outcome.status = .changed
  message?_isSome_iff : outcome.message?.isSome = true ↔ outcome.status = .failed
  patch?_eq_none : outcome.patch? = none
  of_failed : outcome.status = .failed → outcome.sha256After? = none ∧ outcome.counts? = none

section Entry

variable (hwrite : settings.dryRun = false)

include hwrite

theorem EntryEffect.presence {outcome : FileOutcome} {mutations : List Mutation}
    (h : disk.EntryEffect settings path outcome mutations) :
    (outcome.backupPath?.isSome = true ↔ outcome.status = .changed) ∧
      (outcome.message?.isSome = true ↔ outcome.status = .failed) ∧ outcome.patch? = none ∧
      (outcome.status = .failed → outcome.sha256After? = none ∧ outcome.counts? = none) := by
  cases h with
  | missing => simp [FileOutcome.missing, FileOutcome.bare]
  | directory => simp [FileOutcome.failed, FileOutcome.bare]
  | undecodable => simp [FileOutcome.failed, FileOutcome.bare]
  | unchanged => simp [FileOutcome.loaded, FileOutcome.bare]
  | pending _ _ hdry => simp [hwrite] at hdry
  | unsaved => simp [FileOutcome.loaded, FileOutcome.bare]
  | changed => simp [FileOutcome.loaded, FileOutcome.bare]

variable (hplain : PlainSuffix settings.backupSuffix)
  (hseparate : disk.Separate settings.root settings.backupSuffix files) (hpath : path ∈ files)

include hplain hseparate hpath

theorem describes_of_changed (hstatus : (disk.entryOutcome settings path).status = .changed) :
    ∃ old new, disk.readBytes (settings.absPath path) = .ok old ∧
      (disk.afterEntries settings files).readBytes (settings.absPath path) = .ok new ∧
      (disk.entryOutcome settings path).Describes old new := by
  obtain ⟨location, backup, raw, decoded, hchanges, hnew, _⟩ :=
    lookup_after_changed hplain hseparate hpath hstatus
  have heffect : disk.EntryEffect settings path _ _ :=
    .changed hchanges.toLoads hchanges.differs hwrite hchanges.target
  rw [heffect.eq_self.1]
  refine ⟨raw, _, readBytes_of_lookup hchanges.lookup, readBytes_of_lookup hnew, rfl, rfl, ?_, ?_⟩
  · refine ⟨_, decodeBytes_encode .lenient decoded.renamed, ?_⟩
    rw [String.toList_ofList]
    rfl
  · exact lossy_iff_of_decodeBytes hchanges.decode

theorem describes_of_unchanged (hstatus : (disk.entryOutcome settings path).status = .unchanged) :
    ∃ old new, disk.readBytes (settings.absPath path) = .ok old ∧
      (disk.afterEntries settings files).readBytes (settings.absPath path) = .ok new ∧
      (disk.entryOutcome settings path).Describes old new := by
  obtain ⟨_, hsettled, _, _⟩ := (disk.entryEffect_self settings path).status_iff hwrite
  obtain ⟨raw, decoded, hread, hdecode, hsame⟩ := hsettled.mp hstatus
  obtain ⟨location, hfound⟩ := readBytes_eq_ok_iff.mp hread
  -- the bytes stay where they are, whatever they were decoded to
  have hagrees := agreesAt_afterEntries hplain hseparate hpath (by simp [hstatus])
  have hafter := readBytes_of_lookup (hagrees.lookup hfound)
  have heffect : disk.EntryEffect settings path _ _ := .unchanged ⟨hfound, hdecode⟩ hsame
  rw [heffect.eq_self.1]
  refine ⟨raw, raw, hread, hafter, rfl, rfl, ?_, ?_⟩
  · refine ⟨decoded, decodeBytes_lenient_of_ok hdecode, ?_⟩
    rw [← hsame]
    rfl
  · exact lossy_iff_of_decodeBytes hdecode

theorem truthful_after : disk.Truthful (disk.afterEntries settings files) settings path
    (disk.entryOutcome settings path) := by
  have heffect := disk.entryEffect_self settings path
  obtain ⟨hbackup, hmessage, hpatch, hfailed⟩ := heffect.presence hwrite
  refine ⟨heffect.path_eq, ?_, hbackup, hmessage, hpatch, hfailed⟩
  rintro (hchanged | hunchanged)
  · exact describes_of_changed hwrite hplain hseparate hpath hchanged
  · exact describes_of_unchanged hwrite hplain hseparate hpath hunchanged

end Entry

/-- The report of a run that writes, over separate entries, is true of the disk. -/
theorem run_report_truthful (disk : Disk) (settings : RunSettings) (tool : ToolInfo)
    (clock : Clock) (hwrite : settings.dryRun = false) (hsuffix : settings.backupSuffix ≠ "")
    (hslash : '/' ∉ settings.backupSuffix.toList)
    (hseparate : disk.Separate settings.root settings.backupSuffix settings.files) :
    (settings.files = [] → disk.run settings tool clock = .error .emptyFileSet) ∧
    (settings.files ≠ [] → ∃ result, disk.run settings tool clock = .ok result ∧
      List.Forall₂ (disk.Truthful (disk.applyAll result.mutations) settings) settings.files
        result.report.files) := by
  have hplain : PlainSuffix settings.backupSuffix := ⟨hsuffix, hslash⟩
  constructor
  · intro hempty
    simp only [run, checkSetup, if_pos hempty]
  · intro hfiles
    obtain ⟨result, hrun, hreport, hafter⟩ :=
      @exists_run_of_separate disk settings tool clock hfiles hplain hseparate
    refine ⟨result, hrun, ?_⟩
    rw [hreport, hafter, List.forall₂_map_right_iff, List.forall₂_same]
    intro path hpath
    exact truthful_after hwrite hplain hseparate hpath

/-- A disk with a file that is no text and has nothing to rename, one that is no text and has, and
one whose backup has a directory in its way. -/
def lossyDisk : Disk :=
  ⟨FileTree.empty.applyAll
    [.write ["a.h"] [0x6D, 0x61, 0xFF], .write ["b.h"] [0x6D, 0x61, 0x5F, 0xFF],
      .write ["c.h"] (Utf8.encode "MA_y".toList), .makeDirectory ["c.h.backup"]], []⟩

def lossySettings : RunSettings := ⟨".", ["a.h", "b.h", "c.h", "d.h"], .lenient, ".backup", false⟩

theorem run_report_truthful_on_lossyDisk :
    ∃ result, lossyDisk.run lossySettings ⟨"nsprefix", none⟩
        ⟨⟨2024, 5, 1, 12, 0, 0, 0⟩, ⟨2024, 5, 1, 12, 0, 1, 0⟩⟩ = .ok result ∧
      List.Forall₂ (lossyDisk.Truthful (lossyDisk.applyAll result.mutations) lossySettings)
        lossySettings.files result.report.files := by
  obtain ⟨_, htruthful⟩ := run_report_truthful lossyDisk lossySettings ⟨"nsprefix", none⟩
    ⟨⟨2024, 5, 1, 12, 0, 0, 0⟩, ⟨2024, 5, 1, 12, 0, 1, 0⟩⟩ (by decide) (by decide) (by decide)
    (by decide +kernel)
  exact htruthful (by decide)

end Disk
end SymbolRename
